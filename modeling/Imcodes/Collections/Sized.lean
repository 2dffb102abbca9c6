import Mathlib.Algebra.GroupWithZero.Nat
import Mathlib.Algebra.Order.BigOperators.Group.List
import Mathlib.Data.List.Basic

/-!
# Lists whose elements have sizes

A list laid out in a row takes up the sum of the sizes of its elements.  A place in the row is an
offset, which may be inside an element.

* `dropSize`, `takeSize` — what is behind an offset, and up to one; none when the offset is inside
  an element, or behind the end.
* `between_total` — the elements between the ends of two beginnings.
* `eq_nil_of_total_append` — elements that have a size take up room.
-/

namespace Sized

variable {β : Type*} (size : β → ℕ)

/-- The size of the whole. -/
def total (l : List β) : ℕ := (l.map size).sum

/-- The elements behind an offset. -/
def dropSize (offset : ℕ) : List β → Option (List β)
  | [] => if offset = 0 then some [] else none
  | b :: l =>
    if offset = 0 then some (b :: l)
    else if size b ≤ offset then dropSize (offset - size b) l
    else none

/-- The elements up to an offset. -/
def takeSize (offset : ℕ) : List β → Option (List β)
  | [] => if offset = 0 then some [] else none
  | b :: l =>
    if offset = 0 then some []
    else if size b ≤ offset then (takeSize (offset - size b) l).map (b :: ·)
    else none

/-- The elements between two offsets. -/
def between (start stop : ℕ) (l : List β) : Option (List β) :=
  (dropSize size start l).bind (takeSize size (stop - start))

variable {size} {l before middle after : List β}

@[simp] theorem total_nil : total size ([] : List β) = 0 := rfl

@[simp] theorem total_cons {b : β} : total size (b :: l) = size b + total size l := by
  rw [total, List.map_cons, List.sum_cons]
  rfl

@[simp] theorem total_append :
    total size (before ++ after) = total size before + total size after := by
  rw [total, List.map_append, List.sum_append]
  rfl

/-- Elements that have a size take up room. -/
theorem total_eq_zero_iff (hpos : ∀ b ∈ l, 0 < size b) : total size l = 0 ↔ l = [] := by
  cases l with
  | nil => simp
  | cons b l =>
    have hb := hpos b List.mem_cons_self
    simp only [total_cons, reduceCtorEq, iff_false]
    omega

theorem eq_nil_of_total_append (hpos : ∀ b ∈ after, 0 < size b)
    (h : total size before = total size (before ++ after)) : after = [] := by
  rw [total_append] at h
  exact (total_eq_zero_iff hpos).1 (by omega)

theorem dropSize_total (hpos : ∀ b ∈ before, 0 < size b) :
    dropSize size (total size before) (before ++ after) = some after := by
  induction before with
  | nil => cases after <;> rfl
  | cons b before ih =>
    have hb := hpos b List.mem_cons_self
    rw [List.cons_append, dropSize, total_cons, if_neg (by omega), if_pos (Nat.le_add_right _ _),
      Nat.add_sub_cancel_left]
    exact ih fun b hmem => hpos b (List.mem_cons_of_mem _ hmem)

theorem takeSize_total (hpos : ∀ b ∈ before, 0 < size b) :
    takeSize size (total size before) (before ++ after) = some before := by
  induction before with
  | nil => cases after <;> rfl
  | cons b before ih =>
    have hb := hpos b List.mem_cons_self
    rw [List.cons_append, takeSize, total_cons, if_neg (by omega), if_pos (Nat.le_add_right _ _),
      Nat.add_sub_cancel_left, ih fun b hmem => hpos b (List.mem_cons_of_mem _ hmem)]
    rfl

/-- The elements between the ends of two beginnings. -/
theorem between_total (hbefore : ∀ b ∈ before, 0 < size b) (hmiddle : ∀ b ∈ middle, 0 < size b) :
    between size (total size before) (total size (before ++ middle)) (before ++ middle ++ after) =
      some middle := by
  rw [between, List.append_assoc, dropSize_total hbefore, total_append, Nat.add_sub_cancel_left]
  exact takeSize_total hmiddle

end Sized
