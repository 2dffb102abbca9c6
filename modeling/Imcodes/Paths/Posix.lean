import Mathlib.Data.List.Basic

/-!
# Paths from the root

A path is cut into segments at its slashes.  The segments are walked from the root: an empty one
and `.` stay where they are, `..` goes back, and any other one is the name of a next directory.

* `walkAll_names` — a walk over names ends where the names say.
* `segments_absolute` — what the path of some names is cut into.
* `resolve_resolve` — a resolved path resolves to itself.
-/

namespace Posix

/-- The segments of a path. -/
def segments (path : String) : List (List Char) := path.toList.splitOn '/'

/-- A segment that names something in a directory. -/
structure IsName (segment : List Char) : Prop where
  ne_nil : segment ≠ []
  ne_dot : segment ≠ ['.']
  ne_dots : segment ≠ ['.', '.']
  slash : '/' ∉ segment

/-- The next step from a directory. -/
def walk (names : List (List Char)) (segment : List Char) : List (List Char) :=
  if segment = [] ∨ segment = ['.'] then names
  else if segment = ['.', '.'] then names.dropLast
  else names ++ [segment]

/-- The names on the way to where some segments lead. -/
def walkAll (segments : List (List Char)) : List (List Char) := segments.foldl walk []

/-- The path of some names. -/
def absolute (names : List (List Char)) : String :=
  String.ofList ('/' :: ['/'].intercalate names)

/-- `path.isAbsolute` -/
def isAbsolute (path : String) : Bool := path.toList.head? = some '/'

/-- `path.resolve`, in a working directory -/
def resolve (cwd path : String) : String :=
  absolute (walkAll (segments (if isAbsolute path then path else cwd ++ "/" ++ path)))

variable {cwd path : String} {names : List (List Char)} {segment : List Char}

theorem isName_walk (hnames : ∀ name ∈ names, IsName name) (hslash : '/' ∉ segment) :
    ∀ name ∈ walk names segment, IsName name := by
  unfold walk
  split
  · exact hnames
  · rename_i hstay
    split
    · exact fun name hname => hnames name (List.dropLast_subset _ hname)
    · rename_i hback
      intro name hname
      rcases List.mem_append.1 hname with hname | hname
      · exact hnames name hname
      · rw [List.mem_singleton.1 hname]
        exact ⟨fun h => hstay (Or.inl h), fun h => hstay (Or.inr h), hback, hslash⟩

/-- Where segments lead, all are names. -/
theorem isName_foldl_walk (segments : List (List Char)) (hslash : ∀ s ∈ segments, '/' ∉ s)
    (hnames : ∀ name ∈ names, IsName name) :
    ∀ name ∈ segments.foldl walk names, IsName name := by
  induction segments generalizing names with
  | nil => exact hnames
  | cons s segments ih =>
    exact ih (fun s' hs' => hslash s' (List.mem_cons_of_mem _ hs'))
      (isName_walk hnames (hslash s List.mem_cons_self))

theorem walk_of_isName (h : IsName segment) : walk names segment = names ++ [segment] := by
  unfold walk
  rw [if_neg (not_or.2 ⟨h.ne_nil, h.ne_dot⟩), if_neg h.ne_dots]

/-- A walk over names ends where the names say. -/
theorem foldl_walk_names (more : List (List Char)) (h : ∀ name ∈ more, IsName name) :
    more.foldl walk names = names ++ more := by
  induction more generalizing names with
  | nil => exact (List.append_nil names).symm
  | cons name more ih =>
    rw [List.foldl_cons, walk_of_isName (h name List.mem_cons_self),
      ih fun name' hname' => h name' (List.mem_cons_of_mem _ hname'), List.append_assoc]
    rfl

theorem walkAll_names (h : ∀ name ∈ names, IsName name) : walkAll names = names :=
  foldl_walk_names names h

theorem slash_notMem_splitOn (cs : List Char) : ∀ s ∈ cs.splitOn '/', '/' ∉ s := by
  induction cs with
  | nil => simp [List.splitOn_nil]
  | cons c cs ih =>
    rw [List.splitOn_cons_eq_if_modifyHead]
    split
    · rintro s (_ | ⟨_, hs⟩)
      · exact List.not_mem_nil
      · exact ih s hs
    · rename_i hc
      cases hsplit : cs.splitOn '/' with
      | nil => exact nofun
      | cons first rest =>
        rw [hsplit] at ih
        rintro s (_ | ⟨_, hs⟩)
        · have hfirst := ih first List.mem_cons_self
          simpa [eq_comm] using And.intro (by simpa using hc) hfirst
        · exact ih s (List.mem_cons_of_mem _ hs)

theorem slash_notMem_segments : ∀ s ∈ segments path, '/' ∉ s := slash_notMem_splitOn _

theorem isName_walkAll_segments : ∀ name ∈ walkAll (segments path), IsName name :=
  isName_foldl_walk _ slash_notMem_segments nofun

theorem segments_absolute (h : ∀ name ∈ names, IsName name) (hne : names ≠ []) :
    segments (absolute names) = [] :: names := by
  have hcons : '/' :: ['/'].intercalate names = [] ++ '/' :: ['/'].intercalate names := rfl
  rw [segments, absolute, String.toList_ofList, hcons,
    List.splitOn_append_cons_self_of_not_mem List.not_mem_nil,
    List.splitOn_intercalate '/' (fun name hname => (h name hname).slash) hne]

/-- What the path of some names leads to. -/
theorem walkAll_segments_absolute (h : ∀ name ∈ names, IsName name) :
    walkAll (segments (absolute names)) = names := by
  by_cases hne : names = []
  · subst hne
    rfl
  · rw [segments_absolute h hne]
    exact walkAll_names h

theorem isAbsolute_absolute : isAbsolute (absolute names) = true := by
  simp [isAbsolute, absolute]

/-- **A resolved path resolves to itself.** -/
theorem resolve_resolve : resolve cwd (resolve cwd path) = resolve cwd path := by
  unfold resolve
  rw [if_pos isAbsolute_absolute, walkAll_segments_absolute isName_walkAll_segments]

end Posix
