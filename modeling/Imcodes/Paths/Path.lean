import Imcodes.Paths.Posix

/-!
# Paths and what they are made of

A path is read as its segments, from the root or from the working directory.  `join` makes a path
normal: `.` goes, and `..` takes back the name before it; what leads above a relative path stays.

* `join_join` — names are joined one by one or at once.
* `relative` — the way from one place to another.
-/

namespace Posix

/-- The name of something in a directory. -/
abbrev Name := List Char

instance : DecidablePred IsName := fun segment =>
  decidable_of_iff (segment ≠ [] ∧ segment ≠ ['.'] ∧ segment ≠ ['.', '.'] ∧ '/' ∉ segment)
    ⟨fun ⟨h₁, h₂, h₃, h₄⟩ => ⟨h₁, h₂, h₃, h₄⟩, fun h => ⟨h.1, h.2, h.3, h.4⟩⟩

/-- A path, cut at its slashes. -/
structure Path where
  absolute : Bool
  segments : List Name
deriving DecidableEq

namespace Path

/-- The path that is written so. -/
def ofString (path : String) : Path := ⟨isAbsolute path, Posix.segments path⟩

/-- `path.normalize`, one segment on. -/
def add (absolute : Bool) (names : List Name) (segment : Name) : List Name :=
  if segment = [] ∨ segment = ['.'] then names
  else if segment = ['.', '.'] ∧
      (absolute ∨ names.getLast? ≠ none ∧ names.getLast? ≠ some ['.', '.']) then names.dropLast
  else names ++ [segment]

/-- The segments of `path.normalize`. -/
def normalize (path : Path) : Path := ⟨path.absolute, path.segments.foldl (add path.absolute) []⟩

/-- `path.join` of a path and names below it -/
def join (path : Path) (more : List Name) : Path :=
  normalize ⟨path.absolute, path.segments ++ more⟩

/-- `path.dirname` of a path that `path.join` made -/
def dirname (path : Path) : Path := ⟨path.absolute, path.segments.dropLast⟩

variable {absolute : Bool} {names more : List Name} {segment : Name} {path : Path}

theorem add_of_isName (h : IsName segment) : add absolute names segment = names ++ [segment] := by
  unfold add
  rw [if_neg (not_or.2 ⟨h.ne_nil, h.ne_dot⟩), if_neg fun hdots => h.ne_dots hdots.1]

theorem foldl_add_names (hmore : ∀ name ∈ more, IsName name) :
    more.foldl (add absolute) names = names ++ more := by
  induction more generalizing names with
  | nil => exact (List.append_nil names).symm
  | cons name more ih =>
    rw [List.foldl_cons, add_of_isName (hmore name List.mem_cons_self),
      ih fun name' hname' => hmore name' (List.mem_cons_of_mem _ hname'), List.append_assoc]
    rfl

theorem length_foldl_add_le (segments : List Name) :
    (segments.foldl (add absolute) names).length ≤ names.length + segments.length := by
  induction segments generalizing names with
  | nil => exact Nat.le_refl _
  | cons segment segments ih =>
    have hadd : (add absolute names segment).length ≤ names.length + 1 := by
      unfold add
      split
      · exact Nat.le_succ _
      · split
        · rw [List.length_dropLast]
          omega
        · exact Nat.le_of_eq List.length_append
    have := @ih (add absolute names segment)
    rw [List.foldl_cons, List.length_cons]
    omega

/-- A part of something normal is normal. -/
theorem foldl_add_of_concat (h : (names ++ [segment]).foldl (add absolute) [] = names ++ [segment]) :
    names.foldl (add absolute) [] = names ∧ add absolute names segment = names ++ [segment] := by
  rw [List.foldl_append, List.foldl_cons, List.foldl_nil] at h
  have hle := @length_foldl_add_le absolute [] names
  rw [List.length_nil, Nat.zero_add] at hle
  have hlen := congrArg List.length h
  rw [List.length_append, List.length_singleton] at hlen
  have hfold : names.foldl (add absolute) [] = names := by
    by_cases hconcat : add absolute (names.foldl (add absolute) []) segment =
        names.foldl (add absolute) [] ++ [segment]
    · exact (List.append_inj' (hconcat.symm.trans h) rfl).1
    · unfold add at hconcat hlen
      split at hlen
      · unfold add at hle
        omega
      · rename_i hstay
        rw [if_neg hstay, ite_eq_right_iff, Classical.not_imp] at hconcat
        rw [if_pos hconcat.1, List.length_dropLast] at hlen
        unfold add at hle
        omega
  exact ⟨hfold, by rwa [hfold] at h⟩

/-- A normal path is normal again. -/
theorem foldl_add_foldl_add (segments : List Name) (hnames : names.foldl (add absolute) [] = names) :
    (segments.foldl (add absolute) names).foldl (add absolute) [] =
      segments.foldl (add absolute) names := by
  induction segments generalizing names with
  | nil => exact hnames
  | cons segment segments ih =>
    refine ih ?_
    by_cases hconcat : add absolute names segment = names ++ [segment]
    · rw [hconcat, List.foldl_append, hnames]
      exact hconcat
    · unfold add at hconcat ⊢
      split
      · exact hnames
      · rename_i hstay
        rw [if_neg hstay] at hconcat
        rw [ite_eq_right_iff, Classical.not_imp] at hconcat
        rw [if_pos hconcat.1]
        rcases List.eq_nil_or_concat names with rfl | ⟨init, last, rfl⟩
        · rfl
        · rw [List.concat_eq_append] at hnames ⊢
          rw [List.dropLast_concat]
          exact (foldl_add_of_concat hnames).1

/-- Names are joined one by one or at once. -/
theorem join_join : (path.join names).join more = path.join (names ++ more) := by
  unfold join normalize
  dsimp only
  rw [Path.mk.injEq, ← List.append_assoc, List.foldl_append, foldl_add_foldl_add _ rfl,
    @List.foldl_append _ _ _ _ _ more]
  exact ⟨rfl, rfl⟩

/-- Names below a path come last in the path they are joined to. -/
theorem join_names (hnames : ∀ name ∈ names, IsName name) :
    path.join names = ⟨path.absolute, path.normalize.segments ++ names⟩ := by
  unfold join normalize
  dsimp only
  rw [List.foldl_append, foldl_add_names hnames]

end Path

/-! ## From one place to another -/

/-- The names two places share on their way from the root. -/
def commonPrefix : List Name → List Name → List Name
  | a :: as, b :: bs => if a = b then a :: commonPrefix as bs else []
  | _, _ => []

/-- `path.relative` of two real paths -/
def relative (root candidate : List Name) : List Name :=
  let shared := (commonPrefix root candidate).length
  List.replicate (root.length - shared) ['.', '.'] ++ candidate.drop shared

theorem commonPrefix_prefix_left (a b : List Name) : commonPrefix a b <+: a := by
  induction a generalizing b with
  | nil => simp [commonPrefix]
  | cons x a ih =>
    cases b with
    | nil => simp [commonPrefix]
    | cons y b =>
      rw [commonPrefix]
      split
      · exact List.cons_prefix_cons.2 ⟨rfl, ih b⟩
      · exact List.nil_prefix

theorem commonPrefix_prefix_right (a b : List Name) : commonPrefix a b <+: b := by
  induction a generalizing b with
  | nil => simp [commonPrefix]
  | cons x a ih =>
    cases b with
    | nil => simp [commonPrefix]
    | cons y b =>
      rw [commonPrefix]
      split
      · rename_i hxy
        exact List.cons_prefix_cons.2 ⟨hxy, ih b⟩
      · exact List.nil_prefix

/-- A way that does not begin by going back leads below. -/
theorem prefix_of_relative {root candidate : List Name}
    (h : (relative root candidate).head? ≠ some ['.', '.']) : root <+: candidate := by
  have hle := (commonPrefix_prefix_left root candidate).length_le
  by_cases hshared : (commonPrefix root candidate).length = root.length
  · rw [← (commonPrefix_prefix_left root candidate).eq_of_length hshared]
    exact commonPrefix_prefix_right root candidate
  · refine absurd ?_ h
    obtain ⟨n, hn⟩ := Nat.exists_eq_succ_of_ne_zero
      (n := root.length - (commonPrefix root candidate).length) (by omega)
    simp [relative, hn, List.replicate_succ]

end Posix
