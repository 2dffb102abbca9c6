import Mathlib.Data.List.Sort

/-!
# Sorting by an order on the elements of a list

A comparison needs to be an order only on what is sorted.

* `pairwise_insertionSort` — the sorted list is sorted.
* `insertionSort_eq_of_perm` — lists of the same elements are sorted to the same list.
-/

namespace Sorted

variable {α : Type} {r : α → α → Prop} [DecidableRel r] {l l' : List α}

/-- The relation is a linear order on the elements. -/
structure Orders (r : α → α → Prop) (l : List α) : Prop where
  total : ∀ a ∈ l, ∀ b ∈ l, r a b ∨ r b a
  trans : ∀ a ∈ l, ∀ b ∈ l, ∀ c ∈ l, r a b → r b c → r a c
  antisymm : ∀ a ∈ l, ∀ b ∈ l, r a b → r b a → a = b

theorem pairwise_insertionSort (h : Orders r l) : (l.insertionSort r).Pairwise r := by
  let s : {a // a ∈ l} → {a // a ∈ l} → Prop := fun a b => r a b
  have : Std.Total s := ⟨fun a b => h.total a a.2 b b.2⟩
  have : IsTrans {a // a ∈ l} s := ⟨fun a b c => h.trans a a.2 b b.2 c c.2⟩
  have hmap : (l.attach.insertionSort s).map Subtype.val = l.insertionSort r := by
    rw [List.map_insertionSort s r Subtype.val l.attach fun _ _ _ _ => Iff.rfl,
      List.attach_map_subtype_val]
  rw [← hmap, List.pairwise_map]
  exact List.pairwise_insertionSort s l.attach

/-- **One sorted list**, whatever the order of the elements. -/
theorem insertionSort_eq_of_perm (h : Orders r l) (hperm : l.Perm l') :
    l.insertionSort r = l'.insertionSort r := by
  have h' : Orders r l' :=
    ⟨fun a ha b hb => h.total a (hperm.mem_iff.2 ha) b (hperm.mem_iff.2 hb),
      fun a ha b hb c hc => h.trans a (hperm.mem_iff.2 ha) b (hperm.mem_iff.2 hb) c
        (hperm.mem_iff.2 hc),
      fun a ha b hb => h.antisymm a (hperm.mem_iff.2 ha) b (hperm.mem_iff.2 hb)⟩
  refine List.Perm.eq_of_pairwise (fun a b ha hb => h.antisymm a ?_ b ?_)
    (pairwise_insertionSort h) (pairwise_insertionSort h')
    ((List.perm_insertionSort r l).trans (hperm.trans (List.perm_insertionSort r l').symm))
  · exact (List.mem_insertionSort r).1 ha
  · exact hperm.mem_iff.2 ((List.mem_insertionSort r).1 hb)

end Sorted
