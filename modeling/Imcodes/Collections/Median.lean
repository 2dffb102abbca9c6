import Mathlib.Algebra.Order.Field.Basic
import Mathlib.Data.List.GetD
import Mathlib.Data.List.Sort

/-!
# Medians

The median of a list, and what it takes for it not to exceed a bound: the elements that do are
fewer than the others, or as many and the two in the middle make up for one another.
-/

namespace Median

variable {α : Type*} [Field α] [LinearOrder α]

/-- The element in the middle, or the mean of the two that are. -/
def median (l : List α) : α :=
  let sorted := l.insertionSort (· ≤ ·)
  let mid := sorted.length / 2
  if sorted.length % 2 = 1 then sorted.getD mid 0
  else (sorted.getD (mid - 1) 0 + sorted.getD mid 0) / 2

/-- The largest element up to the bound and the smallest one above it have a mean up to the
bound. -/
def MakesUp (bound : α) (l : List α) : Prop :=
  ∃ x ∈ l, ∃ y ∈ l, x ≤ bound ∧ bound < y ∧ (∀ z ∈ l, z ≤ bound → z ≤ x) ∧
    (∀ z ∈ l, bound < z → y ≤ z) ∧ x + y ≤ 2 * bound

/-- The elements above the bound are fewer than the others, or as many and they are made up for. -/
def MostlyAtMost (bound : α) (l : List α) : Prop :=
  l.countP (bound < ·) < l.countP (· ≤ bound) ∨
    l.countP (bound < ·) = l.countP (· ≤ bound) ∧ MakesUp bound l

variable {bound : α} {l l' low high : List α} {i : ℕ}

theorem makesUp_perm (h : l.Perm l') : MakesUp bound l ↔ MakesUp bound l' := by
  simp only [MakesUp, h.mem_iff]

theorem mostlyAtMost_perm (h : l.Perm l') : MostlyAtMost bound l ↔ MostlyAtMost bound l' := by
  rw [MostlyAtMost, MostlyAtMost, h.countP_eq, h.countP_eq, makesUp_perm h]

omit [Field α] in
/-- A sorted list has what is at most the bound in front. -/
theorem filter_append_filter (h : l.Pairwise (· ≤ ·)) :
    l.filter (· ≤ bound) ++ l.filter (bound < ·) = l := by
  induction l with
  | nil => rfl
  | cons x l ih =>
    obtain ⟨hx, hl⟩ := List.pairwise_cons.1 h
    by_cases hxb : x ≤ bound
    · rw [List.filter_cons_of_pos (by simpa using hxb),
        List.filter_cons_of_neg (by simpa using hxb), List.cons_append, ih hl]
    · have hall : ∀ y ∈ l, bound < y := fun y hy => lt_of_lt_of_le (lt_of_not_ge hxb) (hx y hy)
      rw [List.filter_cons_of_neg (by simpa using hxb),
        List.filter_cons_of_pos (by simpa using hxb),
        List.filter_eq_nil_iff.2 fun y hy => by simpa using hall y hy,
        List.filter_eq_self.2 fun y hy => by simpa using hall y hy]
      rfl

theorem getD_append_le (hlow : ∀ x ∈ low, x ≤ bound) (hi : i < low.length) :
    (low ++ high).getD i 0 ≤ bound := by
  rw [List.getD_append _ _ _ _ hi, List.getD_eq_getElem _ _ hi]
  exact hlow _ (List.getElem_mem hi)

theorem lt_getD_append (hhigh : ∀ x ∈ high, bound < x) (hlow : low.length ≤ i)
    (hi : i < low.length + high.length) : bound < (low ++ high).getD i 0 := by
  have hlt : i - low.length < high.length := by omega
  rw [List.getD_append_right _ _ _ _ hlow, List.getD_eq_getElem _ _ hlt]
  exact hhigh _ (List.getElem_mem hlt)

variable [IsStrictOrderedRing α]

/-- The median of a sorted list that is cut at the bound. -/
theorem middle_le_iff (hlow : ∀ x ∈ low, x ≤ bound) (hhigh : ∀ x ∈ high, bound < x)
    (hne : low ++ high ≠ []) (hmid : ∀ x y, low.getLast? = some x → high.head? = some y →
      (MakesUp bound (low ++ high) ↔ x + y ≤ 2 * bound)) :
    (if (low ++ high).length % 2 = 1 then (low ++ high).getD ((low ++ high).length / 2) 0
      else ((low ++ high).getD ((low ++ high).length / 2 - 1) 0 +
        (low ++ high).getD ((low ++ high).length / 2) 0) / 2) ≤ bound ↔
    high.length < low.length ∨ high.length = low.length ∧ MakesUp bound (low ++ high) := by
  have hpos : 0 < (low ++ high).length := List.length_pos_of_ne_nil hne
  rw [List.length_append] at hpos ⊢
  rcases lt_trichotomy high.length low.length with hlt | heq | hgt
  · refine iff_of_true ?_ (Or.inl hlt)
    split
    · exact getD_append_le hlow (by omega)
    · rw [div_le_iff₀ two_pos, mul_two]
      exact add_le_add (getD_append_le hlow (by omega)) (getD_append_le hlow (by omega))
  · rw [if_neg (by omega), div_le_iff₀ two_pos, mul_comm]
    have hlast_lt : low.length - 1 < low.length := by omega
    have hhead_lt : 0 < high.length := by omega
    have hx : low.getLast? = some low[low.length - 1] := by
      rw [List.getLast?_eq_getElem?, List.getElem?_eq_getElem]
    have hy : high.head? = some high[0] := by
      rw [List.head?_eq_getElem?, List.getElem?_eq_getElem]
    have hlast : (low ++ high).getD ((low.length + high.length) / 2 - 1) 0 =
        low[low.length - 1] := by
      have hidx : (low.length + high.length) / 2 - 1 = low.length - 1 := by omega
      rw [hidx, List.getD_append _ _ _ _ (by omega), List.getD_eq_getElem]
    have hhead : (low ++ high).getD ((low.length + high.length) / 2) 0 = high[0] := by
      have hidx : (low.length + high.length) / 2 = low.length := by omega
      rw [hidx, List.getD_append_right _ _ _ _ le_rfl, Nat.sub_self, List.getD_eq_getElem]
    rw [hlast, hhead, ← hmid _ _ hx hy]
    exact ⟨fun h => Or.inr ⟨heq, h⟩, fun h => (h.resolve_left (by omega)).2⟩
  · refine iff_of_false ?_ (by omega)
    rw [not_le]
    split
    · exact lt_getD_append hhigh (by omega) (by omega)
    · rw [lt_div_iff₀ two_pos, mul_two]
      exact add_lt_add (lt_getD_append hhigh (by omega) (by omega))
        (lt_getD_append hhigh (by omega) (by omega))

/-- Of a sorted list, the two in the middle decide whether what is above the bound is made up
for. -/
theorem makesUp_iff (hsorted : (low ++ high).Pairwise (· ≤ ·)) (hlow : ∀ x ∈ low, x ≤ bound)
    (hhigh : ∀ x ∈ high, bound < x) {x y : α} (hx : low.getLast? = some x)
    (hy : high.head? = some y) : MakesUp bound (low ++ high) ↔ x + y ≤ 2 * bound := by
  obtain ⟨front, rfl⟩ := List.getLast?_eq_some_iff.1 hx
  obtain ⟨back, rfl⟩ := List.head?_eq_some_iff.1 hy
  obtain ⟨hfront, hback, -⟩ := List.pairwise_append.1 hsorted
  have hlargest : ∀ z ∈ front ++ [x], z ≤ x := by
    intro z hz
    rcases List.mem_append.1 hz with hz | hz
    · exact (List.pairwise_append.1 hfront).2.2 z hz x (List.mem_singleton_self x)
    · exact (List.mem_singleton.1 hz).le
  have hsmallest : ∀ z ∈ y :: back, y ≤ z := by
    intro z hz
    rcases List.mem_cons.1 hz with rfl | hz
    · exact le_rfl
    · exact (List.pairwise_cons.1 hback).1 z hz
  have hxmem : x ∈ front ++ [x] := List.mem_append_right _ (List.mem_singleton_self x)
  have hymem : y ∈ y :: back := List.mem_cons_self
  have hsplit : ∀ z ∈ (front ++ [x]) ++ (y :: back),
      (z ≤ bound → z ∈ front ++ [x]) ∧ (bound < z → z ∈ y :: back) := by
    intro z hz
    rcases List.mem_append.1 hz with hz | hz
    · exact ⟨fun _ => hz, fun hlt => absurd (hlow z hz) hlt.not_ge⟩
    · exact ⟨fun hle => absurd (hhigh z hz) hle.not_gt, fun _ => hz⟩
  constructor
  · rintro ⟨x', hx', y', hy', hx'b, hy'b, hmax, hmin, hle⟩
    have hxx : x ≤ x' := hmax x (List.mem_append_left _ hxmem) (hlow x hxmem)
    have hyy : y ≤ y' := hsmallest y' ((hsplit y' hy').2 hy'b)
    exact (add_le_add hxx hyy).trans hle
  · intro hle
    refine ⟨x, List.mem_append_left _ hxmem, y, List.mem_append_right _ hymem, hlow x hxmem,
      hhigh y hymem, fun z hz hzb => hlargest z ((hsplit z hz).1 hzb),
      fun z hz hzb => hsmallest z ((hsplit z hz).2 hzb), hle⟩

/-- **The median does not exceed a bound** exactly when the elements above the bound are fewer than
the others, or as many and they are made up for. -/
theorem median_le_iff (hne : l ≠ []) : median l ≤ bound ↔ MostlyAtMost bound l := by
  have hperm := List.perm_insertionSort (· ≤ ·) l
  have hsorted : (l.insertionSort (· ≤ ·)).Pairwise (· ≤ ·) :=
    List.pairwise_insertionSort (· ≤ ·) l
  have hcut := @filter_append_filter _ _ bound _ hsorted
  have hlow : ∀ x ∈ (l.insertionSort (· ≤ ·)).filter (· ≤ bound), x ≤ bound :=
    fun x hx => by simpa using List.of_mem_filter hx
  have hhigh : ∀ x ∈ (l.insertionSort (· ≤ ·)).filter (bound < ·), bound < x :=
    fun x hx => by simpa using List.of_mem_filter hx
  rw [← mostlyAtMost_perm hperm, MostlyAtMost, List.countP_eq_length_filter,
    List.countP_eq_length_filter]
  have hmid := middle_le_iff hlow hhigh
    (by rw [hcut]; exact fun h => hne (h ▸ hperm).symm.eq_nil)
    fun x y hx hy => makesUp_iff (by rw [hcut]; exact hsorted) hlow hhigh hx hy
  rw [hcut] at hmid
  exact hmid

theorem median_nonneg (h : ∀ x ∈ l, 0 ≤ x) : 0 ≤ median l := by
  have hget : ∀ i, 0 ≤ (l.insertionSort (· ≤ ·)).getD i 0 := by
    intro i
    rcases lt_or_ge i (l.insertionSort (· ≤ ·)).length with hi | hi
    · rw [List.getD_eq_getElem _ _ hi]
      exact h _ ((List.mem_insertionSort _).1 (List.getElem_mem hi))
    · rw [List.getD_eq_default _ _ hi]
  unfold median
  dsimp only
  split
  · exact hget _
  · exact div_nonneg (add_nonneg (hget _) (hget _)) zero_le_two

end Median
